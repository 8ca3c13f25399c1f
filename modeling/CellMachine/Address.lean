import CellMachine.Store

/-!
# Addresses

A script sees its memory through 32 bit addresses: the upper twelve bits select one of four
segments, the lower twenty are the cell inside it. The register file has no address.
-/

namespace CellMachine

/-- The segments a script can address. -/
inductive Segment where
  | program
  | global
  | heap
  | stack
  deriving DecidableEq, Repr

namespace Segment

/-- The segments in the order of their selectors. -/
def all : List Segment := [program, global, heap, stack]

/-- The number of cells an address can tell apart inside a segment. -/
def maxCells : Nat := 1048576

/-- The upper part of a segment's addresses. -/
def selector : Segment → Nat
  | program => 0
  | global => 1
  | heap => 2
  | stack => 3

/-- The segment a selector names, if any. -/
def ofSelector? : Nat → Option Segment
  | 0 => some program
  | 1 => some global
  | 2 => some heap
  | 3 => some stack
  | _ => none

/-- The name of a segment. -/
def name : Segment → String
  | program => "program"
  | global => "global"
  | heap => "heap"
  | stack => "stack"

/-- The segment of a name, if any. -/
def ofName? (s : String) : Option Segment := all.find? fun segment => segment.name == s

end Segment

/-- An address taken apart. -/
structure Address where
  segment : Segment
  offset : Nat
  deriving DecidableEq, Repr

namespace Address

/-- The address of a cell of a segment; refused when the offset takes more than twenty bits. -/
def compose (segment : Segment) (offset : Nat) : Except Error UInt32 :=
  if offset < Segment.maxCells then
    .ok (UInt32.ofNat (segment.selector * Segment.maxCells + offset))
  else .error (.misuse (.offsetExceedsSegment offset))

/-- The segment and offset of an address; refused when no segment has the selector. -/
def decode (address : UInt32) : Except Error Address :=
  match Segment.ofSelector? (address.toNat / Segment.maxCells) with
  | some segment => .ok ⟨segment, address.toNat % Segment.maxCells⟩
  | none => .error (.addressing address)

/-- An address for people. -/
def text (a : Address) : String := a.segment.name ++ ":" ++ Nat.repr a.offset

end Address

/-- The windows behind the four segments. -/
structure AddressSpace where
  program : Window
  global : Window
  heap : Window
  stack : Window
  deriving DecidableEq, Repr, Inhabited

namespace AddressSpace

/-- The window behind a segment. -/
def window (m : AddressSpace) : Segment → Window
  | .program => m.program
  | .global => m.global
  | .heap => m.heap
  | .stack => m.stack

/-- The window and index an address refers to; the index is not yet checked. -/
def resolve (m : AddressSpace) (address : UInt32) : Except Error (Window × Nat) :=
  match Address.decode address with
  | .ok a => .ok (m.window a.segment, a.offset)
  | .error e => .error e

/-- The cell at an address. -/
def read (m : AddressSpace) (s : Store) (address : UInt32) : Except Error Cell :=
  match m.resolve address with
  | .ok (w, i) => s.get w i
  | .error e => .error e

/-- The store with the cell at an address replaced. -/
def write (m : AddressSpace) (s : Store) (address : UInt32) (c : Cell) : Except Error Store :=
  match m.resolve address with
  | .ok (w, i) => s.set w i c
  | .error e => .error e

/-- The cell at an address, and the store where `f` of it takes its place. -/
def update (m : AddressSpace) (s : Store) (address : UInt32) (f : Cell → Cell) :
    Except Error (Cell × Store) :=
  match m.resolve address with
  | .ok (w, i) => s.update w i f
  | .error e => .error e

end AddressSpace

/-- The five windows of a process: its address space and its register file. -/
structure Segments extends AddressSpace where
  registers : Window
  deriving DecidableEq, Repr, Inhabited

/-- The five windows in the order they are carved and released. -/
def Segments.windows (s : Segments) : List Window :=
  [s.program, s.global, s.heap, s.stack, s.registers]

end CellMachine
