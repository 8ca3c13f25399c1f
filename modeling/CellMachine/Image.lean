import CellMachine.Cell
import CellMachine.Codec.Item
import CellMachine.Decimal.Layout

/-!
# Compiled images

An image is what an assembler hands over: the instructions of a script and its table of global
values. As a stream it is

* a magic number of 32 bits and a version of 16 bits,
* the number of instructions (signed, 32 bits) and a 64 bit word for each,
* the number of globals (signed, 32 bits) and, for each, a tag byte and its payload.

A writer picks a byte order; a reader finds it from the magic number.
-/

namespace CellMachine

open Codec

/-- A value of the global table. -/
inductive Global where
  | int (v : Int64)
  /-- A floating point number by its bits. -/
  | float (bits : UInt64)
  | text (s : String)
  deriving DecidableEq, Repr

namespace Global

/-- The cell a global value is loaded as. -/
def toCell : Global → Cell
  | int v => Cell.ofInt64 v
  | float bits => ⟨bits, none⟩
  | text s => Cell.ofText s

/-- The tag byte of a global value. -/
def tag : Global → UInt8
  | int _ => 0
  | float _ => 1
  | text _ => 2

/-- A global value in a listing. -/
def describe : Global → String
  | int v => "Int(" ++ Int.repr v.toInt ++ ")"
  | float bits => "Float(" ++ Decimal.render Decimal.listing bits ++ ")"
  | text s => "Str(" ++ Text.quote s ++ ")"

/-- Whether two globals are the same value. Floating point numbers compare as numbers: the two zeros
are the same, and what is not a number is not even the same as itself. -/
def sameValue : Global → Global → Bool
  | float a, float b =>
    Decimal.magnitude a != .notANumber
      && (a == b || (Decimal.magnitude a == .zero && Decimal.magnitude b == .zero))
  | a, b => a = b

end Global

/-- A compiled script. -/
structure Image where
  instructions : List Instruction := []
  globals : List Global := []
  deriving DecidableEq, Repr

namespace Image

/-- Whether two images have the same instructions and the same values as globals. -/
def sameValues (a b : Image) : Bool :=
  a.instructions = b.instructions && a.globals.length = b.globals.length
    && (a.globals.zip b.globals).all fun (g, h) => g.sameValue h

/-- The number every stream starts with. -/
def magic : Nat := 0x57525242

/-- The version of the stream format. -/
def version : Nat := 1

/-! ## Writing -/

/-- The number of entries of a table, if it fits its field. -/
def writeCount (order : ByteOrder) (n : Nat) : Except Error (List UInt8) :=
  if n ≤ maxLength then .ok (order.encode 4 n) else .error (.invalidImage (.tooManyEntries n))

/-- A global value as a tag and its payload. -/
def writeGlobal (order : ByteOrder) : Global → Except Error (List UInt8)
  | .int v => .ok (0 :: order.encode 8 v.toUInt64.toNat)
  | .float bits => .ok (1 :: order.encode 8 bits.toNat)
  | .text s => do
    let body ← writeText order s
    pure (2 :: body)

/-- Global values one after the other. -/
def writeGlobals (order : ByteOrder) : List Global → Except Error (List UInt8)
  | [] => .ok []
  | g :: rest => do
    let front ← writeGlobal order g
    let back ← writeGlobals order rest
    pure (front ++ back)

/-- Instructions one after the other. -/
def writeInstructions (order : ByteOrder) (instructions : List Instruction) : List UInt8 :=
  instructions.flatMap fun i => order.encode 8 i.toWord.toNat

/-- The stream of an image. -/
def encode (order : ByteOrder) (image : Image) : Except Error (List UInt8) := do
  let header := order.encode 4 magic ++ order.encode 2 version
  let codeCount ← writeCount order image.instructions.length
  let code := writeInstructions order image.instructions
  let globalCount ← writeCount order image.globals.length
  let globals ← writeGlobals order image.globals
  pure (header ++ codeCount ++ code ++ globalCount ++ globals)

/-! ## Reading -/

/-- The number of entries of a table; `negative` is the error for a number below zero. -/
def readCount (order : ByteOrder) (negative : Int → ImageDefect) : Reader Nat := do
  let n ← readInt32 order
  if n < 0 then throw (.invalidImage (negative n))
  pure n.toNat

/-- `n` values read one after the other. -/
def readMany {α : Type} (read : Reader α) : (n : Nat) → Reader (List α)
  | 0 => pure []
  | n + 1 => do
    let a ← read
    let rest ← readMany read n
    pure (a :: rest)

/-- The next instruction. -/
def readInstruction (order : ByteOrder) : Reader Instruction := do
  let w ← readWord order 8
  pure (Instruction.ofWord (UInt64.ofNat w))

/-- The next global value. -/
def readGlobal (order : ByteOrder) : Reader Global := do
  let tag ← readWord order 1
  match tag with
  | 0 => do pure (.int (UInt64.ofNat (← readWord order 8)).toInt64)
  | 1 => do pure (.float (UInt64.ofNat (← readWord order 8)))
  | 2 => do pure (.text (← readText order))
  | tag => throw (.invalidImage (.unknownTag (UInt8.ofNat tag)))

/-- The end of the stream. -/
def readEnd : Reader Unit := fun bytes =>
  if bytes.isEmpty then .ok () bytes
  else .error (.invalidImage (.trailingBytes bytes.length)) bytes

/-- A whole stream in a known byte order. -/
def reader (order : ByteOrder) : Reader Image := do
  let _ ← readWord order 4
  let v ← readWord order 2
  if v ≠ version then throw (.invalidImage (.unsupportedVersion v))
  let codeCount ← readCount order .negativeInstructionCount
  let instructions ← readMany (readInstruction order) codeCount
  let globalCount ← readCount order .negativeGlobalCount
  let globals ← readMany (readGlobal order) globalCount
  readEnd
  pure { instructions, globals }

/-- The result of a reader on a whole byte string. -/
def parse (order : ByteOrder) (bytes : List UInt8) : Except Error Image :=
  match (reader order).run bytes with
  | .ok image _ => .ok image
  | .error e _ => .error e

/-- The image of a stream in either byte order. -/
def decode (bytes : List UInt8) : Except Error Image :=
  let front := bytes.take 4
  if front.length = 4 then
    if ByteOrder.little.decode front = magic then parse .little bytes
    else if ByteOrder.big.decode front = magic then parse .big bytes
    else .error (.invalidImage (.badMagic (UInt32.ofNat (ByteOrder.little.decode front))))
  else .error (.invalidImage .shortHeader)

end Image

end CellMachine
