import CellMachine.Machine

/-!
# The host

Everything that machines, processes and their runs share: the pools, the time, the streams scripts
print to, the gates they wait at, and the machines, processes and runs themselves, each known by its
number. Work on the host may be refused or crash; what it did before stays done.
-/

namespace CellMachine

/-- An output stream with what was written to it. -/
structure Stream where
  text : String := ""
  /-- Whether it refuses every write. -/
  broken : Bool := false

/-- A gate that calls wait at. They pass in the order in which they came. -/
structure Gate where
  /-- How many calls have come. -/
  arrived : Nat := 0
  /-- How many of them somebody has asked about. -/
  noticed : Nat := 0
  /-- How many calls may pass, from the first one on. -/
  opened : Nat := 0

/-- The surroundings of all machines. -/
structure Host where
  store : Store := {}
  /-- The time in nanoseconds. -/
  now : Nat := 0
  streams : Array Stream := #[]
  gates : Array Gate := #[]
  machines : Array Machine := #[]
  processes : Array Process := #[]
  runs : Array BackgroundRun := #[]

instance : Inhabited Host := ⟨{}⟩

/-- Work on the host. -/
abbrev HostM := EStateM Fault Host

namespace Host

/-- Refuses with an error. -/
def refuse {α : Type} (e : Error) : HostM α := throw (.error e)

/-- A result that may be a refusal. -/
def accept {α : Type} : Except Error α → HostM α
  | .ok a => pure a
  | .error e => refuse e

/-- Work on the host with its fault, if any, as a value. -/
def attempt {α : Type} (work : HostM α) : HostM (Except Fault α) := fun h =>
  match work h with
  | .ok a h => .ok (.ok a) h
  | .error e h => .ok (.error e) h

/-- Lets time pass. -/
def pass (nanoseconds : Nat) : HostM Unit :=
  modify fun h => { h with now := h.now + nanoseconds }

/-- A new stream. -/
def addStream (broken : Bool) : HostM Nat := do
  let h ← get
  set { h with streams := h.streams.push { broken } }
  pure h.streams.size

/-- A new gate. -/
def addGate : HostM Nat := do
  let h ← get
  set { h with gates := h.gates.push {} }
  pure h.gates.size

/-- A new pool. -/
def addPool (cells : Array Cell) : HostM Nat := fun h =>
  let (pool, store) := h.store.add cells
  .ok pool { h with store }

/-- Changes the pools. -/
def modifyStore (f : Store → Store) : HostM Unit := fun h =>
  let store := h.store
  let h := { h with store := {} }
  .ok () { h with store := f store }

/-! ## Processes and machines by number -/

/-- The process of a number. -/
def process (p : Nat) : HostM Process := do
  match (← get).processes[p]? with
  | some process => pure process
  | none => throw .crash

/-- The machine of a number. -/
def machine (m : Nat) : HostM Machine := do
  match (← get).machines[m]? with
  | some machine => pure machine
  | none => throw .crash

/-- Changes the control block of a process. -/
def modifyControl (p : Nat) (f : Control → Control) : HostM Unit :=
  modify fun h =>
    { h with processes := h.processes.modify p fun q => { q with control := f q.control } }

/-- Changes a machine. -/
def modifyMachine (m : Nat) (f : Machine → Machine) : HostM Unit :=
  modify fun h => { h with machines := h.machines.modify m f }

/-- Changes a run. -/
def modifyRun (r : Nat) (f : BackgroundRun → BackgroundRun) : HostM Unit :=
  modify fun h => { h with runs := h.runs.modify r f }

/-- Whether there is still a machine of a number: somebody holds on to it, or a host call that came
through it is under way. -/
def isPresent (h : Host) (m : Nat) : Bool :=
  let called (run : BackgroundRun) : Bool :=
    run.activity.inCall && (h.processes[run.process]?.bind (·.machine)) == some m
  (h.machines[m]?.map (·.held)).getD false || h.runs.any called

/-- The parts of a machine, unless it is gone or torn down. -/
def parts? (h : Host) (m : Nat) : Option Parts :=
  if isPresent h m then h.machines[m]?.bind (·.parts) else none

/-- The parts of a machine that has not been torn down. -/
def parts (m : Nat) : HostM Parts := do
  match parts? (← get) m with
  | some parts => pure parts
  | none => refuse .disposed

/-- Work on the windows of a machine. -/
def withMemory {α : Type} (m : Nat) (work : Layout → Allocator.AllocM α) : HostM α := do
  let parts ← parts m
  fun h =>
    let store := h.store
    let h := { h with store := {} }
    let keep (allocator : Allocator) (store : Store) (h : Host) : Host :=
      { h with
        store
        machines := h.machines.modify m fun machine =>
          { machine with parts := machine.parts.map fun parts => { parts with allocator } } }
    match work parts.layout (parts.allocator, store) with
    | .ok a (allocator, store) => .ok a (keep allocator store h)
    | .error e (allocator, store) => .error e (keep allocator store h)

end Host

end CellMachine
