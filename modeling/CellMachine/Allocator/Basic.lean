import CellMachine.Allocator.Pool

/-!
# Allocators

A machine either lends windows of one shared pool or makes a pool of its own for every request. In
the second case nothing ever has to be given back. Both answer a request in the same way as long as
there is room.
-/

namespace CellMachine

open Allocator

/-- Where the windows of a machine come from. -/
inductive Allocator where
  /-- One pool for all requests, with the link to its first free run. -/
  | shared (pool : Nat) (firstFree : Int)
  /-- A fresh pool for every request. -/
  | separate
  deriving DecidableEq, Repr, Inhabited

namespace Allocator

/-- Work with an allocator and the pools. -/
abbrev AllocM := EStateM Fault (Allocator × Store)

/-- The allocator that takes over an existing pool and makes it one free run. -/
def ofPool (store : Store) (pool : Nat) : Except Error (Allocator × Store) :=
  match Arena.ofCells (store.cells pool) with
  | .ok arena => .ok (.shared pool arena.firstFree, store.put pool arena.cells)
  | .error e => .error e

/-- The allocator over a new pool of `bytes` bytes. -/
def ofBytes (store : Store) (bytes : Nat) : Except Error (Allocator × Store) :=
  match poolCells bytes with
  | .ok cells =>
    let (pool, store) := store.addZero cells
    ofPool store pool
  | .error e => .error e

/-- Work on the arena that a shared pool is. -/
def inArena {α : Type} (pool : Nat) (firstFree : Int) (work : ArenaM α) : AllocM α :=
  fun (_, store) =>
    let (cells, store) := store.take pool
    match work ⟨cells, firstFree⟩ with
    | .ok a arena => .ok a (.shared pool arena.firstFree, store.put pool arena.cells)
    | .error e arena => .error e (.shared pool arena.firstFree, store.put pool arena.cells)

/-- The window of a new pool of `cells` cells. -/
def freshWindow (cells : Nat) : AllocM Window := fun (allocator, store) =>
  let (pool, store) := store.addZero cells
  .ok ⟨pool, 0, cells⟩ (allocator, store)

/-- A window for `size` bytes. -/
def obtain (size : Int) (kind : Kind) : AllocM Window := do
  match (← get).1 with
  | .shared pool firstFree =>
    let (offset, length) ← inArena pool firstFree (allocate size kind)
    pure ⟨pool, offset, length⟩
  | .separate =>
    match requestedCells size kind with
    | .ok cells => freshWindow cells
    | .error e => throw (.error e)

/-- Gives a window back. -/
def giveBack (w : Window) : AllocM Unit := do
  match (← get).1 with
  | .shared pool firstFree =>
    if w.pool = pool then inArena pool firstFree (release w.offset w.length)
    else throw (.error (.misuse .foreignWindow))
  | .separate => pure ()

/-- The arena of a shared pool, to look at. -/
def arena (allocator : Allocator) (store : Store) : Arena :=
  match allocator with
  | .shared pool firstFree => ⟨store.cells pool, firstFree⟩
  | .separate => ⟨#[], noRun⟩

end Allocator

end CellMachine
