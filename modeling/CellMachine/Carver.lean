import CellMachine.Allocator.Basic
import CellMachine.Config
import CellMachine.Image

/-!
# Carving the segments of a process

A process gets five windows: program and globals sized by its image, heap, stack and registers by
the layout. An empty table still gets one cell. Windows are cleared before use, so nothing of an
earlier owner is seen. If one window cannot be had, those already carved are given back and the
reason is reported.
-/

namespace CellMachine.Carver

open Allocator

/-- Work on windows, with the reason of a refusal as a value. A crash still ends it. -/
def attempt {α : Type} (work : AllocM α) : AllocM (Except Error α) := fun state =>
  match work state with
  | .ok a state => .ok (.ok a) state
  | .error (.error e) state => .ok (.error e) state
  | .error .crash state => .error .crash state

/-- Sets the cells of a window to zero. -/
def wipe (w : Window) : AllocM Unit :=
  modify fun (allocator, store) => (allocator, store.clear w)

/-- Writes cells to the front of a window. -/
def fill (w : Window) (cells : List Cell) : AllocM Unit := do
  if cells.length > w.length then throw (.error (.outOfRange 0 w.length))
  modify fun (allocator, store) => (allocator, store.overwritten w.pool w.offset cells)

/-- A cleared window of `cells` cells. -/
def carve (cells : Nat) (kind : Kind) : AllocM Window := do
  if cells > Segment.maxCells then
    throw (.error (.misuse (.segmentTooLarge kind.name cells)))
  let w ← obtain ((cells * 8 : Nat) : Int) kind
  wipe w
  pure w

/-- Gives windows back in order. All are tried; the first refusal is the result. -/
def giveBackAll : List Window → AllocM (Option Error)
  | [] => pure none
  | w :: rest => do
    let first ← attempt (giveBack w)
    let later ← giveBackAll rest
    match first with
    | .ok _ => pure later
    | .error e => pure (some e)

/-- Carves the windows of a plan after those already `carved`, which are given back, the oldest
first, when one cannot be had. -/
def carveAll : (plan : List (Nat × Kind)) → (carved : List Window) → AllocM (List Window)
  | [], carved => pure carved
  | (cells, kind) :: rest, carved => do
    match ← attempt (carve cells kind) with
    | .ok w => carveAll rest (carved ++ [w])
    | .error e =>
      let _ ← giveBackAll carved
      throw (.error e)

/-- The sizes and kinds of the five windows. -/
def plan (layout : Layout) (image : Image) : List (Nat × Kind) :=
  [(max 1 image.instructions.length, .program),
   (max 1 image.globals.length, .global),
   (layout.heapCells, .heap),
   (layout.stackCells, .stack),
   (layout.registerCount, .context)]

/-- The segments of a new process, filled from its image. -/
def create (layout : Layout) (image : Image) : AllocM Segments := do
  match ← carveAll (plan layout image) [] with
  | [program, global, heap, stack, registers] =>
    fill program (image.instructions.map Cell.ofInstruction)
    fill global (image.globals.map Global.toCell)
    pure { program, global, heap, stack, registers }
  | _ => throw .crash

/-- Gives the segments of a process back. -/
def release (segments : Segments) : AllocM Unit := do
  match ← giveBackAll segments.windows with
  | none => pure ()
  | some e => throw (.error e)

/-- The allocator that a configuration asks for. -/
def allocatorFor (store : Store) (c : Config) : Except Error (Allocator × Store) :=
  if c.hostAllocator then .ok (.separate, store) else Allocator.ofBytes store c.poolSize

end CellMachine.Carver
