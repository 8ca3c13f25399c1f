import CellMachine.Host.Schedule

/-!
# Host calls and execution on the caller's thread

A call finds its function through the firmware of the caller's machine and then has its effects one
by one. While the caller's own thread sleeps, the background runs go on; they get a slice as well
after each burst of a long execution. Waiting at a gate that is not open never ends.
-/

namespace CellMachine.Host

/-- Has one effect on behalf of a process; `fuel` bounds the rounds of the runs meanwhile. -/
def effect (p fuel : Nat) : Effect → HostM Unit
  | .deed d => carryOut p d
  | .sleep ms => do
    let _ ← waitUntil (fun _ => false) (some ((← get).now + ms * millisecond)) fuel
  | .wait gate => do
    let ticket ← arrive gate
    if !isOpenTo gate ticket (← get) then throw .crash

/-- Has effects in order. -/
def effects (p fuel : Nat) : List Effect → HostM Unit
  | [] => pure ()
  | e :: rest => do
    effect p fuel e
    effects p fuel rest

/-- Lives through a reaction on the caller's thread. -/
def react (p fuel : Nat) (r : Reaction) : HostM Cell := do
  effects p fuel r.effects
  replied r.reply

/-- Calls a host function on behalf of a process. -/
def call (p fuel : Nat) (id : FunctionId) (args : List Cell) : HostM Cell := do
  react p fuel (← reaction p id args)

/-- Calls a host function through a machine, which has to be that of the process. -/
def callThrough (m p fuel : Nat) (id : FunctionId) (args : List Cell) : HostM Cell := do
  ensureAlive m
  let q ← process p
  if q.machine ≠ some m then refuse (.misuse (.foreignProcess q.id))
  call p fuel id args

/-! ## Execution -/

/-- The turns of one burst. -/
def burstLength : Nat := 4096

/-- Executes from a frame to the end of the run; `fuel` bounds the bursts. -/
def dispatch (p : Nat) : (fuel : Nat) → Processor.Frame → HostM Unit
  | 0, _ => throw .crash
  | fuel + 1, frame => do
    match ← burst p burstLength frame with
    | .ended result => accept result
    | .tired frame =>
      let _ ← round (← get).runs.size
      dispatch p fuel frame
    | .calling function args result frame =>
      let value ← call p fuel function args
      let q ← process p
      match Processor.resume q.segments q.control frame result value with
      | .ended result => accept result
      | .next frame (some a) =>
        modifyStore a.apply
        dispatch p fuel frame
      | .next frame none => dispatch p fuel frame
      | .calling _ _ _ frame => dispatch p fuel frame

/-- Executes a process on the caller's thread. -/
def execute (p fuel : Nat) : HostM Unit := do
  if (← process p).control.state = .ready then start p
  match ← attempt (dispatch p fuel {}) with
  | .ok _ => stop p
  | .error (.error e) =>
    fault p
    refuse e
  | .error .crash => throw .crash

end CellMachine.Host
