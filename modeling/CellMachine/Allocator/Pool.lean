import CellMachine.Allocator.Census

/-!
# First fit in one pool

`allocate` takes the first run of the free list that is large enough. If the rest could hold a run
of its own it is split off and takes the place of the old run in the list; otherwise the whole run
is lent. `release` gives a run back: it grows into a free run right before it, or it goes to the end
of the free list. A free run right after it stays apart until it is released itself.
-/

namespace CellMachine.Allocator

/-- The fewest cells of a run: two records and one cell to lend. -/
def minimumRunCells : Nat := 3

/-- The most cells a pool can have, so that every position fits a record. -/
def maximumPoolCells : Nat := 0x7fffffff

/-- The number of cells that hold `bytes` bytes. -/
def cellsForBytes (bytes : Nat) : Nat := (bytes + 7) / 8

/-- The number of bytes in `cells` cells, in 64 bits. -/
def bytesForCells (cells : Nat) : Nat := cells * 8 % 0x10000000000000000

/-- The cells of a request; a size that is not positive and the kind of free runs are refused. -/
def requestedCells (size : Int) (kind : Kind) : Except Error Nat :=
  if size ≤ 0 then .error (.misuse (.nonPositiveSize size))
  else if kind = .free then .error (.misuse .freeKind)
  else .ok (cellsForBytes size.toNat)

/-! ## A new arena -/

/-- The whole pool as one free run; its cells are kept apart from the two records. -/
def Arena.ofCells (cells : Array Cell) : Except Error Arena :=
  if cells.size < minimumRunCells then .error (.misuse (.poolBelowMinimumCells cells.size))
  else if cells.size > maximumPoolCells then .error (.misuse .poolTooLarge)
  else
    match (writeRun 0 (cells.size - 2) .free noRun).run ⟨cells, 0⟩ with
    | .ok _ arena => .ok arena
    | .error _ arena => .ok arena

/-- The number of cells of a pool of `bytes` bytes, if a pool can be that small or large. -/
def poolCells (bytes : Nat) : Except Error Nat :=
  if bytes < 24 then .error (.misuse (.poolBelowMinimumBytes bytes))
  else if cellsForBytes bytes > maximumPoolCells then .error (.misuse .poolTooLarge)
  else .ok (cellsForBytes bytes)

/-! ## Allocation -/

/-- A free run that fits, and the link to the free run before it in the list. -/
structure Fit where
  run : Run
  previous : Int
  deriving DecidableEq, Repr

/-- The first run from `link` on that can lend `count` cells. The outer `none` is a broken list. -/
def firstFit (cells : Array Cell) (count : Nat) :
    (fuel : Nat) → (previous link : Int) → Option (Option Fit)
  | 0, _, link => if link = noRun then some none else none
  | fuel + 1, previous, link =>
    if link = noRun then some none
    else
      match follow? cells link with
      | none => none
      | some run =>
        if count ≤ run.count then some (some ⟨run, previous⟩)
        else firstFit cells count fuel link run.next

/-- Lends `count` cells of a free run. The result takes the place of the run in the free list: the
run that was split off, or the next free run when nothing was. -/
def divide (run : Run) (count : Nat) (kind : Kind) : ArenaM Int := do
  if run.count - count < minimumRunCells then
    writeRun run.head run.count kind noRun
    pure run.next
  else
    writeRun run.head count kind noRun
    let rest := run.head + 2 + count
    writeRun rest (run.count - (2 + count)) .free run.next
    pure rest

/-- Lends cells for `size` bytes. The result is the position of the first cell and their number. -/
def allocate (size : Int) (kind : Kind) : ArenaM (Nat × Nat) := do
  let count ← match requestedCells size kind with
    | .ok count => pure count
    | .error e => throw (.error e)
  let arena ← get
  match ← sound (firstFit arena.cells count arena.cells.size noRun arena.firstFree) with
  | none => throw (.error (.outOfMemory count))
  | some fit =>
    let replacement ← divide fit.run count kind
    if fit.previous = noRun then
      modify fun arena => { arena with firstFree := replacement }
    else
      let before ← loadRun fit.previous.toNat
      writeRun before.head before.count before.kind replacement
    pure (fit.run.head + 1, count)

/-! ## Release -/

/-- The head of the run right before `head`, if the cell there is the tail of a run that fits. -/
def before? (cells : Array Cell) (head : Nat) : Option Nat :=
  if head = 0 then none
  else
    match cells[head - 1]? with
    | none => none
    | some tail =>
      if 0 ≤ tail.low ∧ tail.low.toNat ≤ head then some (head - tail.low.toNat) else none

/-- The last run of the free list from `link` on. -/
def lastFree (cells : Array Cell) : (fuel : Nat) → (link : Int) → Option Run
  | 0, _ => none
  | fuel + 1, link =>
    match follow? cells link with
    | none => none
    | some run => if run.next = noRun then some run else lastFree cells fuel run.next

/-- Puts a run that became free at the end of the free list. -/
def append (head : Nat) : ArenaM Unit := do
  let arena ← get
  if arena.firstFree = noRun then
    set { arena with firstFree := (head : Int) }
  else
    let last ← sound (lastFree arena.cells arena.cells.size arena.firstFree)
    writeRun last.head last.count .free head

/-- Grows a free run over the run right after it. The head record in between stays marked free. -/
def absorb (previous run : Run) : ArenaM Unit := do
  writeRun previous.head (previous.count + run.count + 2) .free previous.next
  writeRecord run.head run.count Kind.free.code

/-- The run behind a window of `length` cells from `offset` on; refused when no lent run starts
there or it is shorter. -/
def lentRun (offset length : Nat) : ArenaM Run := do
  if offset = 0 then throw (.error (.misuse .notAnAllocation))
  let head := offset - 1
  let cells := (← get).cells
  let first ← sound cells[head]?
  if first.low < 0 ∨ first.low.toNat < length ∨ cells.size < head + 2 + first.low.toNat then
    throw (.error (.misuse (.noRunRecord head length)))
  let run ← loadRun head
  if run.kind = .free then throw (.error (.misuse (.alreadyFree head)))
  pure run

/-- Gives back the run behind a window. -/
def release (offset length : Nat) : ArenaM Unit := do
  let run ← lentRun offset length
  match before? (← get).cells run.head with
  | some head =>
    let previous ← loadRun head
    if previous.kind = .free then absorb previous run
    else
      writeRun run.head run.count .free noRun
      append run.head
  | none =>
    writeRun run.head run.count .free noRun
    append run.head

end CellMachine.Allocator
