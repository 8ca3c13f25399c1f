import CellMachine.Cell
import CellMachine.Error

/-!
# Host functions

A host function looks at its call and reacts: some effects on its surroundings, in order, and then a
reply. The first effect that fails ends the call with its error, and so does a reply that refuses.
Since a reaction is plain data, whoever runs the call decides when each effect happens, and a call
that has to wait can be put aside in the middle.
-/

namespace CellMachine

/-- What a host function is told. -/
structure HostCall where
  /-- The id of the calling process. -/
  processId : Int
  args : List Cell

/-- An argument of a call; refused when there are not as many. -/
def HostCall.arg (call : HostCall) (i : Nat) : Except Error Cell :=
  match call.args[i]? with
  | some c => .ok c
  | none => .error (.outOfRange i call.args.length)

/-- What is done to the surroundings at once. -/
inductive Deed where
  /-- Writes to an output stream. -/
  | print (stream : Nat) (text : String)
  /-- Writes a cell of the calling process. -/
  | write (address : UInt32) (value : Cell)
  /-- Disposes of the calling process. -/
  | dispose
  /-- Ends the calling process normally. -/
  | stop
  /-- Ends the calling process as faulted. -/
  | fault
  /-- Disposes of the machine of the calling process. -/
  | disposeMachine
  deriving DecidableEq, Repr

/-- What a host function does to its surroundings; a sleep and a wait take time. -/
inductive Effect where
  | deed (d : Deed)
  | sleep (milliseconds : Nat)
  /-- Waits to be let through a gate. -/
  | wait (gate : Nat)
  deriving DecidableEq, Repr

/-- What a host function answers. -/
inductive Reply where
  | value (c : Cell)
  | refuse (e : Error)
  /-- The thread of the call does not survive. -/
  | crash
  deriving DecidableEq, Repr

/-- Effects and then a reply. -/
structure Reaction where
  effects : List Effect := []
  reply : Reply
  deriving DecidableEq, Repr

/-- A function of the host that scripts can call. -/
abbrev HostFunction := HostCall → Reaction

namespace Reaction

/-- The reaction that only answers. -/
def answer (c : Cell) : Reaction := ⟨[], .value c⟩

/-- The reaction of a computation that may be refused. -/
def ofExcept : Except Error Reaction → Reaction
  | .ok r => r
  | .error e => ⟨[], .refuse e⟩

end Reaction

end CellMachine
