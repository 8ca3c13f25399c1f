import CellMachine.Peripheral.Reaction
import CellMachine.Text.Quoted

/-!
# The functions of a peripheral

A registry gives functions their ids, counting from zero, and never gives an id twice. A name that
is registered again means the newer function from then on; the older one keeps its id. Clearing a
registry forgets names and functions and goes on counting. Ids are signed half words; a registry
whose counter has come to the end of them crashes.
-/

namespace CellMachine

open Text

/-- The functions of one peripheral. -/
structure Registry where
  nextId : Nat := 0
  /-- Names and their ids, the newest first. -/
  names : List (String × Nat) := []
  /-- Ids and their functions, the newest first. -/
  functions : List (Nat × HostFunction) := []

namespace Registry

/-- The most functions a registry can count. -/
def maxFunctions : Nat := 0x7fffffff

/-- Registers a function; its id. A counter at its end is a crash, and nothing changes. -/
def register (r : Registry) (name : String) (f : HostFunction) : Except Fault (Nat × Registry) :=
  if r.nextId < maxFunctions then
    .ok (r.nextId,
      { nextId := r.nextId + 1
        names := (name, r.nextId) :: r.names
        functions := (r.nextId, f) :: r.functions })
  else .error .crash

/-- Registers functions in order. -/
def registerAll (r : Registry) : List (String × HostFunction) → Except Fault Registry
  | [] => .ok r
  | (name, f) :: rest =>
    match r.register name f with
    | .ok (_, r) => registerAll r rest
    | .error e => .error e

/-- The id a name stands for. -/
def resolve? (r : Registry) (name : String) : Option Nat := r.names.lookup name

/-- The function with an id. -/
def function? (r : Registry) (id : Nat) : Option HostFunction := r.functions.lookup id

/-- Forgets all names and functions. -/
def clear (r : Registry) : Registry := { r with names := [], functions := [] }

/-- The number of functions. -/
def size (r : Registry) : Nat := r.functions.length

/-- Names and what they stand for, each name once. -/
def bindings : List (String × Nat) → List (String × Nat)
  | [] => []
  | (name, id) :: rest => (name, id) :: (bindings rest).filter fun b => b.1 ≠ name

/-- A registry for people. -/
def describe (r : Registry) : String :=
  let entries := (bindings r.names).map fun b => quote b.1 ++ ": " ++ Nat.repr b.2
  "PeripheralRegistry \x7b next_function_id: " ++ Nat.repr r.nextId ++ ", functions: \x7b"
    ++ String.intercalate ", " entries ++ "\x7d \x7d"

end Registry

end CellMachine
