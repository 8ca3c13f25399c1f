import CellMachine.Error

/-!
# The control block of a process

What the parties to a process share: its state, its clock, and the three flags that decide when its
segments go back. Every function here is one access to the block, the unit in which concurrent
parties take turns; `Control.start`, `leave` and `close` put accesses together for a party that is
alone.

A process is `ready` until it starts, `running` until it ends, and then `stopped` or `faulted`;
disposing of it makes it `stopped` from any state.
-/

namespace CellMachine

/-- The states of a process. -/
inductive ProcessState where
  /-- Not yet started. -/
  | ready
  | running
  /-- Ended normally, or disposed of. -/
  | stopped
  /-- Ended by an error or by the watchdog. -/
  | faulted
  deriving DecidableEq, Repr, Inhabited

/-- The name of a state. -/
def ProcessState.name : ProcessState → String
  | ready => "Ready"
  | running => "Running"
  | stopped => "Stopped"
  | faulted => "Faulted"

/-- A clock that can be stopped and started again. Times are nanoseconds. -/
structure Stopwatch where
  startedAt : Option Nat := none
  accumulated : Nat := 0
  deriving DecidableEq, Repr, Inhabited

namespace Stopwatch

/-- Starts the clock unless it is going. -/
def start (w : Stopwatch) (now : Nat) : Stopwatch :=
  match w.startedAt with
  | some _ => w
  | none => { w with startedAt := some now }

/-- Stops the clock and keeps the time it was going. -/
def stop (w : Stopwatch) (now : Nat) : Stopwatch :=
  match w.startedAt with
  | some t => ⟨none, w.accumulated + (now - t)⟩
  | none => w

/-- The time the clock has been going. -/
def elapsed (w : Stopwatch) (now : Nat) : Nat :=
  match w.startedAt with
  | some t => w.accumulated + (now - t)
  | none => w.accumulated

end Stopwatch

/-- The nanoseconds of a millisecond. -/
def millisecond : Nat := 1000000

/-- The shared part of a process. -/
structure Control where
  state : ProcessState := .ready
  clock : Stopwatch := {}
  /-- Milliseconds a run may take; zero for no limit. -/
  watchdogMs : Nat := 1000
  disposed : Bool := false
  /-- Set while a background run may still touch the segments. -/
  runActive : Bool := false
  /-- Set once the segments went back. -/
  released : Bool := false
  deriving DecidableEq, Repr, Inhabited

namespace Control

/-! ## Single accesses -/

/-- Sets the disposed flag; whether it was set before. -/
def swapDisposed (c : Control) : Bool × Control := (c.disposed, { c with disposed := true })

/-- Sets the released flag; whether it was set before. -/
def swapReleased (c : Control) : Bool × Control := (c.released, { c with released := true })

/-- Makes the process stopped, from any state. -/
def writeStopped (c : Control) : Control := { c with state := .stopped }

/-- Stops the clock. -/
def stopClock (c : Control) (now : Nat) : Control := { c with clock := c.clock.stop now }

/-- Marks a background run as under way. -/
def raiseActive (c : Control) : Control := { c with runActive := true }

/-- Marks the background run as over. -/
def lowerActive (c : Control) : Control := { c with runActive := false }

/-- Makes a ready process running and starts its clock; the state it was in otherwise. -/
def enterRunning (c : Control) (now : Nat) : Except ProcessState Control :=
  if c.state = .ready then .ok { c with state := .running, clock := c.clock.start now }
  else .error c.state

/-- Takes a running process to `next` and stops its clock; any other process stays as it is. -/
def leave (c : Control) (next : ProcessState) (now : Nat) : Control :=
  if c.state = .running then { c with state := next, clock := c.clock.stop now } else c

/-! ## Accesses of one party put together -/

/-- Starts a process: refused when it is disposed of or not ready. -/
def start (c : Control) (id : Int) (now : Nat) : Except Error Control :=
  if c.disposed then .error .disposed
  else
    match c.enterRunning now with
    | .ok c => .ok c
    | .error state => .error (.misuse (.cannotStart id state.name))

/-- Disposes of a process for the first time: everything but the release of its segments. -/
def close (c : Control) (now : Nat) : Control :=
  (c.swapDisposed.2.writeStopped).stopClock now

/-! ## The watchdog -/

/-- Whether the process has been running for longer than it may. -/
def expired (c : Control) (now : Nat) : Bool :=
  c.watchdogMs ≠ 0 && c.clock.elapsed now > c.watchdogMs * millisecond

/-- The watchdog's error for the clock as it stands. -/
def watchdogError (c : Control) (now : Nat) : Error :=
  .watchdog (c.clock.elapsed now / millisecond) c.watchdogMs

end Control

end CellMachine
