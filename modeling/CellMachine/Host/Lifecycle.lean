import CellMachine.Host.Basic

/-!
# The life of a process

Starting, ending and disposing of processes and machines. The segments of a process go back once,
and only after it was disposed of: at once when no background run is under way, and otherwise when
that run is over.
-/

namespace CellMachine.Host

/-! ## Processes -/

/-- Makes a ready process running. -/
def start (p : Nat) : HostM Unit := do
  let q ← process p
  let control ← accept (q.control.start q.id (← get).now)
  modifyControl p fun _ => control

/-- Ends a running process normally. -/
def stop (p : Nat) : HostM Unit := do
  let now := (← get).now
  modifyControl p fun c => c.leave .stopped now

/-- Ends a running process as faulted. -/
def fault (p : Nat) : HostM Unit := do
  let now := (← get).now
  modifyControl p fun c => c.leave .faulted now

/-- Gives the segments of a process back, once. A refusal is nobody's business any more. -/
def releaseSegments (p : Nat) : HostM Unit := do
  let q ← process p
  let (before, control) := q.control.swapReleased
  if before then return
  modifyControl p fun _ => control
  match q.machine with
  | none => pure ()
  | some m =>
    match parts? (← get) m with
    | none => pure ()
    | some _ =>
      match ← attempt (withMemory m fun _ => Carver.release q.segments) with
      | .error .crash => throw .crash
      | _ => pure ()

/-- Disposes of a process. Doing so again has no effect. -/
def dispose (p : Nat) : HostM Unit := do
  let q ← process p
  if q.control.disposed then return
  let now := (← get).now
  modifyControl p fun c => c.close now
  if q.control.runActive then return
  releaseSegments p

/-- A background run is over: a process that was disposed of meanwhile gives its segments back. -/
def finishRun (p : Nat) : HostM Unit := do
  modifyControl p Control.lowerActive
  if (← process p).control.disposed then releaseSegments p

/-- Whether a background run of a process is under way. -/
def hasRun (h : Host) (p : Nat) : Bool :=
  h.runs.any fun r => r.process = p && match r.activity with
    | .finished => false
    | _ => true

/-- Disposes of a process nobody holds on to. -/
def collect (p : Nat) : HostM Unit := do
  if !(← process p).held then dispose p

/-- The embedding program lets go of a process. -/
def letGo (p : Nat) : HostM Unit := do
  modify fun h => { h with processes := h.processes.modify p fun q => { q with held := false } }
  if !hasRun (← get) p then collect p

/-- Disposes of processes in order. -/
def disposeAll : List Nat → HostM Unit
  | [] => pure ()
  | p :: rest => do
    dispose p
    disposeAll rest

/-! ## Machines -/

/-- Disposes of a machine: first of its processes, then of its parts. -/
def disposeMachine (m : Nat) : HostM Unit := do
  let machine ← machine m
  if machine.disposed then return
  modifyMachine m fun machine => { machine with disposed := true, processes := [] }
  disposeAll machine.processes
  modifyMachine m fun machine =>
    { machine with parts := none, tornDown := Machine.teardownOrder }

/-- The embedding program lets go of a machine, which disposes of it. -/
def dropMachine (m : Nat) : HostM Unit := do
  disposeMachine m
  modifyMachine m fun machine => { machine with held := false }

/-- Lets go of the first `n` machines, the oldest first. -/
def dropMachines : (n : Nat) → HostM Unit
  | 0 => pure ()
  | n + 1 => do
    dropMachines n
    dropMachine n

/-- Refuses when a machine is disposed of. -/
def ensureAlive (m : Nat) : HostM Unit := do
  if (← machine m).disposed then refuse .disposed

/-- A process of a machine for an image. -/
def createProcess (m : Nat) (image : Image) : HostM Nat := do
  ensureAlive m
  let segments ← withMemory m fun layout => Carver.create layout image
  let h ← get
  let p := h.processes.size
  let machine ← machine m
  let control : Control := { watchdogMs := machine.watchdogMs }
  modify fun h =>
    { h with
      processes := h.processes.push
        { id := machine.nextProcessId, segments, machine := some m, control }
      machines := h.machines.modify m fun machine =>
        { machine with
          nextProcessId := machine.nextProcessId + 1
          processes := machine.processes ++ [p] } }
  pure p

/-- A process of a machine for an image of its storage. -/
def loadProcess (m : Nat) (name : String) : HostM Nat := do
  ensureAlive m
  let parts ← parts m
  let bytes ← accept (parts.storage.load name)
  let image ← accept (Image.decode bytes)
  createProcess m image

/-- A process without a machine. It can be executed but neither run nor call the host. -/
def addDetached (id : Int) (segments : Segments) : HostM Nat := do
  let h ← get
  set { h with processes := h.processes.push { id, segments, machine := none } }
  pure h.processes.size

/-- A process without a machine over five pools of its own. -/
def addAlone (id : Int) (program global heap stack registers : Array Cell) : HostM Nat := do
  let lay (cells : Array Cell) : HostM Window := do
    let pool ← addPool cells
    pure ⟨pool, 0, cells.size⟩
  let space : AddressSpace := ⟨← lay program, ← lay global, ← lay heap, ← lay stack⟩
  addDetached id { space with registers := ← lay registers }

/-- A process without a machine over five pools of `n` zero cells. -/
def addBlank (id : Int) (n : Nat) : HostM Nat :=
  let zeros := Array.replicate n Cell.zero
  addAlone id zeros zeros zeros zeros zeros

end CellMachine.Host
