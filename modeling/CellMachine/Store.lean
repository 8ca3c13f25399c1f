import CellMachine.Cell
import CellMachine.Error

/-!
# Pools and windows

All cells live in pools, and a `Store` holds the pools. A `Window` names a stretch of one pool; it
owns nothing, never moves and never grows, and several windows may share cells, so that a write
through one is seen through the others. Every access through a window is checked against the
window's length, and a refused access changes nothing.
-/

namespace CellMachine

/-- The pools of cells, each named by its position. A pool never changes its size. -/
structure Store where
  pools : Array (Array Cell) := #[]
  deriving Repr

instance : Inhabited Store := ⟨{}⟩

/-- The cells `offset`, …, `offset + length - 1` of a pool. -/
structure Window where
  pool : Nat
  offset : Nat
  length : Nat
  deriving DecidableEq, Repr, Inhabited

namespace Store

/-- The cells of a pool; none for a pool that does not exist. -/
def cells (s : Store) (pool : Nat) : Array Cell := s.pools.getD pool #[]

/-- The number of cells of a pool. -/
def size (s : Store) (pool : Nat) : Nat := (s.cells pool).size

/-- A store with one more pool, and the name of that pool. -/
def add (s : Store) (cells : Array Cell) : Nat × Store :=
  (s.pools.size, { pools := s.pools.push cells })

/-- A pool of `n` zero cells. -/
def addZero (s : Store) (n : Nat) : Nat × Store := s.add (Array.replicate n Cell.zero)

/-- One cell of a pool, by its position. -/
def peek (s : Store) (pool i : Nat) : Cell := (s.cells pool).getD i Cell.zero

/-- The store with one cell replaced, by its position. -/
def poke (s : Store) (pool i : Nat) (c : Cell) : Store :=
  { pools := s.pools.modify pool fun cells => cells.setIfInBounds i c }

/-- The cells of a pool, and the store without them until they are put back. -/
def take (s : Store) (pool : Nat) : Array Cell × Store :=
  (s.cells pool, { pools := s.pools.setIfInBounds pool #[] })

/-- The store with the cells of a pool replaced. -/
def put (s : Store) (pool : Nat) (cells : Array Cell) : Store :=
  { pools := s.pools.setIfInBounds pool cells }

/-! ## Making windows -/

/-- The window `[start, start + length)` of a pool, if the pool is long enough. -/
def window (s : Store) (pool start length : Nat) : Except Error Window :=
  if start + length ≤ s.size pool then .ok ⟨pool, start, length⟩
  else .error (.misuse (.windowExceedsPool start length (s.size pool)))

/-- The window for bounds that come from a script: no pool and negative bounds are refused. -/
def windowOfInts (s : Store) (pool : Option Nat) (start length : Int) : Except Error Window :=
  match pool with
  | none => .error (.misuse .absentPool)
  | some pool =>
    if start < 0 then .error (.misuse (.negativeStart start))
    else if length < 0 then .error (.misuse (.negativeLength length))
    else s.window pool start.toNat length.toNat

/-- The window over a whole pool. -/
def whole (s : Store) (pool : Nat) : Window := ⟨pool, 0, s.size pool⟩

end Store

/-- Whether two windows have a cell in common. -/
def Window.aliases (a b : Window) : Bool :=
  a.pool == b.pool && a.offset < b.offset + b.length && b.offset < a.offset + a.length

/-- The position in the pool of a window's cell. -/
def Window.position (w : Window) (index : Nat) : Except Error Nat :=
  if index < w.length then .ok (w.offset + index) else .error (.outOfRange index w.length)

/-- A window over a pool of `cells` cells, for people. -/
def Window.describe (w : Window) (cells : Nat) : String :=
  "MemoryView \x7b pool: Pool \x7b cells: " ++ Nat.repr cells ++ " \x7d, offset: "
    ++ Nat.repr w.offset ++ ", length: " ++ Nat.repr w.length ++ " \x7d"

namespace Store

/-! ## Reading -/

/-- The cell at an index of a window. -/
def get (s : Store) (w : Window) (index : Nat) : Except Error Cell :=
  match w.position index with
  | .ok at_ => .ok (s.peek w.pool at_)
  | .error e => .error e

/-- The cells of a window, in order. -/
def read (s : Store) (w : Window) : List Cell :=
  ((s.cells w.pool).extract w.offset (w.offset + w.length)).toList

/-! ## Writing -/

/-- The store with the cell at an index of a window replaced. -/
def set (s : Store) (w : Window) (index : Nat) (c : Cell) : Except Error Store :=
  match w.position index with
  | .ok at_ => .ok (s.poke w.pool at_ c)
  | .error e => .error e

/-- The cell at an index of a window, and the store where `f` of it takes its place. -/
def update (s : Store) (w : Window) (index : Nat) (f : Cell → Cell) : Except Error (Cell × Store) :=
  match w.position index with
  | .ok at_ =>
    let c := s.peek w.pool at_
    .ok (c, s.poke w.pool at_ (f c))
  | .error e => .error e

/-- Consecutive cells written from position `i` on. -/
def overwrite (cells : Array Cell) : (i : Nat) → List Cell → Array Cell
  | _, [] => cells
  | i, c :: rest => overwrite (cells.setIfInBounds i c) (i + 1) rest

/-- `n` cells set to zero from position `i` on. -/
def wipe (cells : Array Cell) (i : Nat) : (n : Nat) → Array Cell
  | 0 => cells
  | n + 1 => wipe (cells.setIfInBounds i Cell.zero) (i + 1) n

/-- The store with consecutive cells of a pool written from position `i` on. -/
def overwritten (s : Store) (pool i : Nat) (values : List Cell) : Store :=
  { pools := s.pools.modify pool fun cells => overwrite cells i values }

/-- The store with `values` written into a window from `start` on. -/
def write (s : Store) (w : Window) (start : Nat) (values : List Cell) : Except Error Store :=
  if start + values.length ≤ w.length then .ok (s.overwritten w.pool (w.offset + start) values)
  else .error (.outOfRange start w.length)

/-- The store with every cell of a window set to zero bits and no object. -/
def clear (s : Store) (w : Window) : Store :=
  { pools := s.pools.modify w.pool fun cells => wipe cells w.offset w.length }

end Store

end CellMachine
