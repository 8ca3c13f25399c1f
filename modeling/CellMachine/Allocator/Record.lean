import CellMachine.Store

/-!
# Run records

A pool that is handed out in pieces is divided into runs. A run keeps its bookkeeping in the cells
right before and right after the piece it lends:

* head: the number of cells lent, and the kind of the run;
* tail: the number of cells of the whole run (two more), and the head of the next free run.

Records are pairs of half words in ordinary cells, so anybody who can write a pool can break them.
Reading a record that points outside the pool gives nothing, and the allocator crashes on it.
-/

namespace CellMachine.Allocator

/-- What a run is used for. -/
inductive Kind where
  | free
  | program
  | global
  | heap
  | stack
  /-- A register file. -/
  | context
  deriving DecidableEq, Repr, Inhabited

namespace Kind

/-- All kinds, in the order of their numbers. -/
def all : List Kind := [free, program, global, heap, stack, context]

/-- The number of a kind in a record. -/
def code : Kind → Int
  | free => 0
  | program => 1
  | global => 2
  | heap => 3
  | stack => 4
  | context => 5

/-- The kind of a number in a record; an unknown number counts as free. -/
def ofCode (n : Int) : Kind :=
  if n = 1 then program
  else if n = 2 then global
  else if n = 3 then heap
  else if n = 4 then stack
  else if n = 5 then context
  else free

/-- The name of a kind. -/
def name : Kind → String
  | free => "Free"
  | program => "Program"
  | global => "Global"
  | heap => "Heap"
  | stack => "Stack"
  | context => "Context"

/-- The kind of a name, if any. -/
def ofName? (s : String) : Option Kind := all.find? fun kind => kind.name == s

end Kind

/-- The link that ends the free list. -/
def noRun : Int := -1

/-- A run as its records describe it. -/
structure Run where
  /-- The position of the head record. -/
  head : Nat
  /-- The number of cells lent, the records not counted. -/
  count : Nat
  kind : Kind
  /-- The head of the next free run, or `noRun`. -/
  next : Int
  deriving DecidableEq, Repr, Inhabited

/-- The position of the tail record. -/
def Run.tail (r : Run) : Nat := r.head + 1 + r.count

/-- The position right after the run. -/
def Run.stop (r : Run) : Nat := r.head + 2 + r.count

/-- The run whose head record stands at `head`. -/
def readRun? (cells : Array Cell) (head : Nat) : Option Run :=
  match cells[head]? with
  | none => none
  | some first =>
    if first.low < 0 then none
    else
      let count := first.low.toNat
      match cells[head + 1 + count]? with
      | none => none
      | some last => some ⟨head, count, Kind.ofCode first.high, last.high⟩

/-- The run a link leads to. -/
def follow? (cells : Array Cell) (link : Int) : Option Run :=
  if link < 0 then none else readRun? cells link.toNat

/-- A pool of cells under an allocator: the cells, and the link to the first free run. -/
structure Arena where
  cells : Array Cell
  firstFree : Int
  deriving Repr

/-- Work on an arena. What was written before a fault stays written. -/
abbrev ArenaM := EStateM Fault Arena

/-- An optional reading; nothing read is a crash. -/
def sound {α : Type} (a : Option α) : ArenaM α :=
  match a with
  | some a => pure a
  | none => throw .crash

/-- Writes a record, keeping whatever object its cell carries. -/
def writeRecord (position : Nat) (low high : Int) : ArenaM Unit := fun arena =>
  match arena.cells[position]? with
  | some c =>
    .ok () { arena with cells := arena.cells.setIfInBounds position (c.withPair low high) }
  | none => .error .crash arena

/-- Writes both records of a run. -/
def writeRun (head count : Nat) (kind : Kind) (next : Int) : ArenaM Unit := do
  writeRecord head count kind.code
  writeRecord (head + 1 + count) ((count + 2 : Nat) : Int) next

/-- Reads the run at a position. -/
def loadRun (head : Nat) : ArenaM Run := do
  sound (readRun? (← get).cells head)

end CellMachine.Allocator
