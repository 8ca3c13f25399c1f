import CellMachine.Host.Lifecycle

/-!
# The steps of execution

What execution on the caller's own thread and execution in the background are both made of: what a
host function is found to do, each of its deeds, and bursts of turns.
-/

namespace CellMachine.Host

/-- Writes to a stream. -/
def print (stream : Nat) (text : String) : HostM Unit := do
  match (← get).streams[stream]? with
  | none => throw .crash
  | some s =>
    if s.broken then refuse (.io .brokenStream)
    modify fun h =>
      { h with streams := h.streams.modify stream fun s => { s with text := s.text ++ text } }

/-- Arrives at a gate; how many calls came there before. -/
def arrive (gate : Nat) : HostM Nat := do
  match (← get).gates[gate]? with
  | none => throw .crash
  | some g =>
    modify fun h =>
      { h with gates := h.gates.setIfInBounds gate { g with arrived := g.arrived + 1 } }
    pure g.arrived

/-- Whether a gate lets the call pass before which `ticket` others came. -/
def isOpenTo (gate ticket : Nat) (h : Host) : Bool :=
  match h.gates[gate]? with
  | some g => ticket < g.opened
  | none => false

/-- Does a deed on behalf of a process. -/
def carryOut (p : Nat) : Deed → HostM Unit
  | .print stream text => print stream text
  | .write address value => do
    let q ← process p
    let (w, i) ← accept (q.segments.resolve address)
    let position ← accept (w.position i)
    modifyStore fun store => store.poke w.pool position value
  | .dispose => dispose p
  | .stop => stop p
  | .fault => fault p
  | .disposeMachine => do
    match (← process p).machine with
    | some m => disposeMachine m
    | none => pure ()

/-- The value of a reply. -/
def replied : Reply → HostM Cell
  | .value c => pure c
  | .refuse e => refuse e
  | .crash => throw .crash

/-- What a host function that a process calls does. -/
def reaction (p : Nat) (id : FunctionId) (args : List Cell) : HostM Reaction := do
  let q ← process p
  match q.machine with
  | none => refuse .disposed
  | some m =>
    let parts ← parts m
    match parts.firmware.function? id with
    | none => refuse (.unknownFunction id.raw.toInt)
    | some f => pure (f ⟨q.id, args⟩)

/-- Takes turns for a process as it stands. -/
def burst (p turns : Nat) (frame : Processor.Frame) : HostM Processor.Pause := do
  let q ← process p
  fun h =>
    let store := h.store
    let h := { h with store := {} }
    let (pause, store, now) := Processor.burst q.segments q.control turns h.now store frame
    .ok pause { h with store, now }

end CellMachine.Host
