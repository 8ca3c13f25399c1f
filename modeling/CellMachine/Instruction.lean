import CellMachine.Text.Numeral

/-!
# Instructions

An instruction is one 64 bit word: the operation in the lowest byte, three register operands in
the next three bytes, and a signed 32 bit immediate in the upper half. Any word is an instruction;
only its operation may be unknown.
-/

namespace CellMachine

open Text

/-- The operations of the processor. -/
inductive Opcode where
  /-- End the run. -/
  | halt
  | nop
  /-- `ra := rb`, the host object included. -/
  | mov
  /-- `ra := immediate`. -/
  | movl
  /-- `ra := rb + rc`. -/
  | add
  /-- `ra := rb - rc`. -/
  | sub
  /-- `ra := memory[rb + immediate]`. -/
  | ldr
  /-- `memory[rb + immediate] := ra`. -/
  | str
  /-- Continue at `immediate`. -/
  | br
  /-- Continue at `immediate` if `ra` is not zero. -/
  | bnz
  /-- `rc :=` the result of host function `immediate` on registers `ra`, …, `ra + rb - 1`. -/
  | callp
  deriving DecidableEq, Repr

namespace Opcode

/-- All operations, in the order of their bytes. -/
def all : List Opcode := [halt, nop, mov, movl, add, sub, ldr, str, br, bnz, callp]

/-- The byte of an operation. -/
def toByte : Opcode → UInt8
  | halt => 0
  | nop => 1
  | mov => 2
  | movl => 3
  | add => 4
  | sub => 5
  | ldr => 6
  | str => 7
  | br => 8
  | bnz => 9
  | callp => 10

/-- The operation a byte stands for, if any. -/
def ofByte? (b : UInt8) : Option Opcode :=
  match b.toNat with
  | 0 => some halt
  | 1 => some nop
  | 2 => some mov
  | 3 => some movl
  | 4 => some add
  | 5 => some sub
  | 6 => some ldr
  | 7 => some str
  | 8 => some br
  | 9 => some bnz
  | 10 => some callp
  | _ => none

/-- The name of an operation in listings. -/
def mnemonic : Opcode → String
  | halt => "halt"
  | nop => "nop"
  | mov => "mov"
  | movl => "movl"
  | add => "add"
  | sub => "sub"
  | ldr => "ldr"
  | str => "str"
  | br => "br"
  | bnz => "bnz"
  | callp => "callp"

/-- The operation a mnemonic names, if any. -/
def ofMnemonic? (s : String) : Option Opcode := all.find? fun op => op.mnemonic == s

/-- The name of an operation with a capital letter. -/
def title : Opcode → String
  | halt => "Halt"
  | nop => "Nop"
  | mov => "Mov"
  | movl => "Movl"
  | add => "Add"
  | sub => "Sub"
  | ldr => "Ldr"
  | str => "Str"
  | br => "Br"
  | bnz => "Bnz"
  | callp => "Callp"

end Opcode

/-- One instruction word, taken apart. -/
structure Instruction where
  op : UInt8
  ra : UInt8 := 0
  rb : UInt8 := 0
  rc : UInt8 := 0
  immediate : Int32 := 0
  deriving DecidableEq, Repr

namespace Instruction

/-- The instruction for a known operation. -/
def make (op : Opcode) (ra rb rc : UInt8) (immediate : Int32) : Instruction :=
  ⟨op.toByte, ra, rb, rc, immediate⟩

/-- The word of an instruction. -/
def toWord (i : Instruction) : UInt64 :=
  i.op.toUInt64 + i.ra.toUInt64 * 0x100 + i.rb.toUInt64 * 0x10000 + i.rc.toUInt64 * 0x1000000
    + i.immediate.toUInt32.toUInt64 * 0x100000000

/-- The instruction a word stands for. -/
def ofWord (w : UInt64) : Instruction where
  op := w.toUInt8
  ra := (w >>> 8).toUInt8
  rb := (w >>> 16).toUInt8
  rc := (w >>> 24).toUInt8
  immediate := (w >>> 32).toUInt32.toInt32

/-- The operation, if it is a known one. -/
def opcode? (i : Instruction) : Option Opcode := Opcode.ofByte? i.op

/-- An instruction in a listing. -/
def text (i : Instruction) : String :=
  match i.opcode? with
  | some op =>
    padRight 6 op.mnemonic ++ " r" ++ Nat.repr i.ra.toNat ++ ", r" ++ Nat.repr i.rb.toNat
      ++ ", r" ++ Nat.repr i.rc.toNat ++ ", #" ++ Int.repr i.immediate.toInt
  | none => "<invalid 0x" ++ hex 2 i.op.toNat ++ ">"

end Instruction

end CellMachine
