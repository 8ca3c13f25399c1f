import CellMachine.Allocator.Record

/-!
# Looking over the runs of a pool

The runs in the order of their addresses, and the free runs in the order of the list that links
them. Both walks follow numbers read from cells; a list that has not ended after as many steps as
the pool has cells runs in a circle and counts as broken.
-/

namespace CellMachine.Allocator

/-- The runs from `head` to the end of the pool, at most `fuel` of them. -/
def runsFrom (cells : Array Cell) : (fuel head : Nat) → Option (List Run)
  | 0, head => if head < cells.size then none else some []
  | fuel + 1, head =>
    if head < cells.size then
      match readRun? cells head with
      | none => none
      | some run => (runsFrom cells fuel run.stop).map (run :: ·)
    else some []

/-- The free runs from a link on, at most `fuel` of them. -/
def freeFrom (cells : Array Cell) : (fuel : Nat) → (link : Int) → Option (List Run)
  | 0, link => if link = noRun then some [] else none
  | fuel + 1, link =>
    if link = noRun then some []
    else
      match follow? cells link with
      | none => none
      | some run => (freeFrom cells fuel run.next).map (run :: ·)

/-- All runs in address order. -/
def Arena.runs (a : Arena) : Option (List Run) := runsFrom a.cells a.cells.size 0

/-- The free runs in list order. -/
def Arena.freeRuns (a : Arena) : Option (List Run) := freeFrom a.cells a.cells.size a.firstFree

/-- The cells that free runs could lend, all together. -/
def Arena.freeCells (a : Arena) : Option Nat :=
  a.freeRuns.map fun runs => runs.foldr (fun run n => run.count + n) 0

/-- Everything there is to see of an arena from outside. -/
structure Census where
  /-- The link to the first free run. -/
  firstFree : Int
  /-- The free runs in list order. -/
  freeRuns : List Run
  /-- The cells that free runs could lend. -/
  freeCells : Nat
  /-- All runs in address order. -/
  runs : List Run
  deriving DecidableEq, Repr

/-- The census of an arena; none when its records are broken. -/
def Arena.census? (a : Arena) : Option Census := do
  let freeRuns ← a.freeRuns
  let freeCells ← a.freeCells
  let runs ← a.runs
  pure { firstFree := a.firstFree, freeRuns, freeCells, runs }

end CellMachine.Allocator
