import CellMachine.Codec.Bytes
import CellMachine.Instruction
import CellMachine.Text.Quoted

/-!
# Cells

A cell is the unit of memory: 64 bits, and beside them possibly an object of the host. Writing a
number replaces the whole cell, so the bits above a narrow number are zero and the object is gone.
Only `withPair` and the operations on the object change one half and keep the other.
-/

namespace CellMachine

open Text

/-- An object of the host carried by a cell: a text, or something scripts cannot look into. -/
inductive HostObject where
  | text (s : String)
  | token (n : UInt32)
  deriving DecidableEq, Repr

/-- One cell of memory. -/
structure Cell where
  bits : UInt64 := 0
  object : Option HostObject := none
  deriving DecidableEq, Repr

namespace Cell

instance : Inhabited Cell := ⟨{}⟩

/-- Zero bits and no object. -/
def zero : Cell := {}

/-! ## Numbers -/

/-- The cell holding the `width` low bits of `v`. -/
def ofInt (width : Nat) (v : Int) : Cell := ⟨UInt64.ofNat (v % (1 <<< width : Nat)).toNat, none⟩

/-- The cell holding `v`, as every register result does. -/
def ofInt64 (v : Int64) : Cell := ⟨v.toUInt64, none⟩

/-- The `width` low bits as a natural number. -/
def unsigned (width : Nat) (c : Cell) : Nat := c.bits.toNat % (1 <<< width)

/-- The `width` low bits as a two's complement number. -/
def signed (width : Nat) (c : Cell) : Int := (c.bits.toNat : Int).bmod (1 <<< width)

/-- All bits as a two's complement number. -/
def toInt64 (c : Cell) : Int64 := c.bits.toInt64

/-! ## Pairs of half words -/

/-- The lower half as a two's complement number. -/
def low (c : Cell) : Int := ((c.bits.toNat % 0x100000000 : Nat) : Int).bmod 0x100000000

/-- The upper half as a two's complement number. -/
def high (c : Cell) : Int := ((c.bits.toNat / 0x100000000 : Nat) : Int).bmod 0x100000000

/-- The cell with new halves and the object it had. -/
def withPair (c : Cell) (low high : Int) : Cell :=
  { c with
    bits := UInt64.ofNat ((low % 0x100000000).toNat + 0x100000000 * (high % 0x100000000).toNat) }

/-! ## Instructions and bytes -/

/-- The cell holding an instruction. -/
def ofInstruction (i : Instruction) : Cell := ⟨i.toWord, none⟩

/-- The bits as an instruction. -/
def instruction (c : Cell) : Instruction := Instruction.ofWord c.bits

/-- The eight bytes of a cell in memory order. -/
def bytes (c : Cell) : List UInt8 := Codec.digits 8 c.bits.toNat

/-- The cell with the given bytes in memory order and no object. -/
def ofBytes (bytes : List UInt8) : Cell := ⟨UInt64.ofNat (Codec.value bytes), none⟩

/-! ## Host objects -/

/-- The cell carrying a text over zero bits. -/
def ofText (s : String) : Cell := ⟨0, some (.text s)⟩

/-- The cell carrying a token over zero bits. -/
def ofToken (n : UInt32) : Cell := ⟨0, some (.token n)⟩

/-- The cell with another object, or none, over the same bits. -/
def withObject (c : Cell) (object : Option HostObject) : Cell := { c with object }

/-- The text a cell carries, if any. -/
def text? (c : Cell) : Option String :=
  match c.object with
  | some (.text s) => some s
  | _ => none

/-- The token a cell carries, if any. -/
def token? (c : Cell) : Option UInt32 :=
  match c.object with
  | some (.token n) => some n
  | _ => none

/-- A cell in full, for people. -/
def describe (c : Cell) : String :=
  let object := match c.object with
    | some (.text s) => quote s
    | some (.token _) => quote "<host object>"
    | none => quote "none"
  "ValueCell \x7b bits: 0x" ++ hex 16 c.bits.toNat ++ ", object: " ++ object ++ " \x7d"

end Cell

end CellMachine
